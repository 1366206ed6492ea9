import LeasedListener.Queue.Store

/-!
# The evolution of a queue

Only a deletion removes a message, and only the one that it names.  All other
calls keep every message with its identity and body, and add at most one, under
an identity that no message had before.
-/

namespace LeasedListener

namespace Queue

variable {q q' : Queue} {now : Nat} {wallClock : Timestamp} {id : MessageId} {body : List UInt8}

def Stores (q : Queue) (id : MessageId) (body : List UInt8) : Prop :=
  ∃ m ∈ q.messages, m.id = id ∧ m.body = body

/-- Messages of one identity have one body. -/
def IsCoherent (q : Queue) : Prop :=
  ∀ id body body', q.Stores id body → q.Stores id body' → body = body'

theorem stores_congr (h : q'.messages = q.messages) : q'.Stores id body ↔ q.Stores id body := by
  unfold Stores
  rw [h]

theorem stores_of_mem {m : StoredMessage} (h : m ∈ q.messages) : q.Stores m.id m.body :=
  ⟨m, h, rfl, rfl⟩

theorem messages_opening (q : Queue) (operation : QueueOperation) :
    (q.opening operation).1.messages = q.messages := by
  unfold opening
  split <;> rfl

theorem stores_append {fresh : MessageId} {added : List UInt8} {dequeueCount : UInt32} :
    (q.append fresh added dequeueCount now wallClock).Stores id body ↔
      q.Stores id body ∨ (fresh = id ∧ added = body) := by
  simp [Stores, append, List.mem_append, or_and_right, exists_or]

theorem stores_remove {removed : MessageId} :
    (q.remove removed).Stores id body ↔ q.Stores id body ∧ id ≠ removed := by
  simp only [Stores, remove, List.mem_filter, decide_eq_true_eq]
  constructor
  · rintro ⟨m, ⟨hm, hne⟩, rfl, rfl⟩
    exact ⟨⟨m, hm, rfl, rfl⟩, hne⟩
  · rintro ⟨⟨m, hm, rfl, rfl⟩, hne⟩
    exact ⟨m, ⟨hm, hne⟩, rfl, rfl⟩

/-- A change to the claim on a message is no change to the message. -/
theorem stores_change {changed : MessageId} {f : StoredMessage → StoredMessage}
    (hf : ∀ m ∈ q.messages, m.id = changed → (f m).id = m.id ∧ (f m).body = m.body) :
    (q.change changed f).Stores id body ↔ q.Stores id body := by
  have hsame : ∀ m ∈ q.messages, (if m.id = changed then f m else m).id = m.id ∧
      (if m.id = changed then f m else m).body = m.body := by
    intro m hm
    split
    · next hchanged => exact hf m hm hchanged
    · exact ⟨rfl, rfl⟩
  simp only [Stores, change, List.mem_map]
  constructor
  · rintro ⟨_, ⟨m, hm, rfl⟩, hid, hbody⟩
    obtain ⟨hid', hbody'⟩ := hsame m hm
    exact ⟨m, hm, hid'.symm.trans hid, hbody'.symm.trans hbody⟩
  · rintro ⟨m, hm, hid, hbody⟩
    obtain ⟨hid', hbody'⟩ := hsame m hm
    exact ⟨_, ⟨m, hm, rfl⟩, hid'.trans hid, hbody'.trans hbody⟩

theorem stores_dequeue {fresh : Receipt} {window : Duration} (hcoherent : q.IsCoherent) :
    (q.dequeue now wallClock fresh window).1.Stores id body ↔ q.Stores id body := by
  have hmessages := messages_opening q .dequeue
  unfold dequeue
  split
  · next error hopening =>
      rw [hopening] at hmessages
      exact stores_congr hmessages
  · next opened _ hopening =>
      rw [hopening] at hmessages
      split
      · exact stores_congr hmessages
      · next stored hfound =>
          have hstored : q.Stores stored.id stored.body := by
            rw [← stores_congr hmessages]
            exact stores_of_mem (List.mem_of_find?_eq_some hfound)
          rw [stores_change, stores_congr hmessages]
          intro m hm hid
          have hm : q.Stores m.id m.body := by
            rw [← stores_congr hmessages]
            exact stores_of_mem hm
          rw [hid] at hm
          exact ⟨hid.symm, hcoherent _ _ _ hstored hm⟩

theorem dequeue_eq_some {fresh : Receipt} {window : Duration} {m : Delivery}
    (h : (q.dequeue now wallClock fresh window).2 = .ok (some m)) : q.Stores m.id m.body := by
  have hmessages := messages_opening q .dequeue
  unfold dequeue at h
  split at h
  · simp at h
  · next opened _ hopening =>
      rw [hopening] at hmessages
      split at h
      · simp at h
      · next stored hfound =>
          have hstored : q.Stores stored.id stored.body := by
            rw [← stores_congr hmessages]
            exact stores_of_mem (List.mem_of_find?_eq_some hfound)
          obtain rfl := Option.some.inj (Except.ok.inj h)
          exact hstored

theorem stores_updateVisibility {fresh : Receipt} {m : Delivery} {window : Duration} :
    (q.updateVisibility now fresh m window).1.Stores id body ↔ q.Stores id body := by
  have hmessages := messages_opening q .update
  unfold updateVisibility
  split
  · next error hopening =>
      rw [hopening] at hmessages
      exact stores_congr hmessages
  · next opened _ hopening =>
      rw [hopening] at hmessages
      split
      · exact stores_congr hmessages
      · next stored hclaimed =>
          rw [stores_change, stores_congr hmessages]
          intro m hm hid
          exact ⟨rfl, rfl⟩

theorem claimed?_eq_ok {m : Delivery} {stored : StoredMessage}
    (h : q.claimed? m now = .ok stored) : stored.id = m.id := by
  unfold claimed? find? at h
  split at h
  · simp at h
  · next found hfound =>
      split at h
      · rw [← Except.ok.inj h]
        simpa using List.find?_some hfound
      · simp at h

theorem stores_delete_of_ne {m : Delivery} (hne : id ≠ m.id) :
    (q.delete now m).1.Stores id body ↔ q.Stores id body := by
  have hmessages := messages_opening q .delete
  unfold delete
  split
  · next error hopening =>
      rw [hopening] at hmessages
      exact stores_congr hmessages
  · next opened _ hopening =>
      rw [hopening] at hmessages
      split
      · exact stores_congr hmessages
      · next stored hclaimed =>
          rw [stores_remove, stores_congr hmessages, claimed?_eq_ok hclaimed]
          exact and_iff_left hne

theorem stores_of_delete {m : Delivery} (h : (q.delete now m).1.Stores id body) :
    q.Stores id body := by
  have hmessages := messages_opening q .delete
  unfold delete at h
  split at h
  · next error hopening =>
      rw [hopening] at hmessages
      exact (stores_congr hmessages).mp h
  · next opened _ hopening =>
      rw [hopening] at hmessages
      split at h
      · exact (stores_congr hmessages).mp h
      · exact (stores_congr hmessages).mp (stores_remove.mp h).1

theorem enqueue_eq (q : Queue) (now : Nat) (wallClock : Timestamp) (fresh : MessageId)
    (added : List UInt8) :
    (∃ error, (q.enqueue now wallClock fresh added).2 = .error error ∧
      (q.enqueue now wallClock fresh added).1.messages = q.messages) ∨
    ((q.enqueue now wallClock fresh added).2 = .ok fresh ∧
      ∀ id body, (q.enqueue now wallClock fresh added).1.Stores id body ↔
        q.Stores id body ∨ (fresh = id ∧ added = body)) := by
  have hmessages := messages_opening q .enqueue
  unfold enqueue
  split
  · next error hopening =>
      rw [hopening] at hmessages
      exact .inl ⟨error, rfl, hmessages⟩
  · next opened _ hopening =>
      rw [hopening] at hmessages
      refine .inr ⟨rfl, ?_⟩
      intro id body
      rw [stores_append, stores_congr hmessages]

end Queue

namespace QueueCall

variable {s : Serials} {q : Queue} {now : Nat} {wallClock : Timestamp} {call : QueueCall}
  {id : MessageId} {body : List UInt8}

def added : QueueCall → List UInt8
  | .enqueue body => body
  | _ => []

theorem message_le_run (call : QueueCall) (s : Serials) (q : Queue) :
    s.message ≤ (call.run now wallClock (s, q)).1.1.message := by
  cases call with
  | probe | create | delete => simp [run]
  | enqueue added =>
      simp only [run]
      split <;> simp [Serials.messageUsed]
  | dequeue window =>
      simp only [run]
      split <;> simp [Serials.receiptUsed]
  | update m window =>
      simp only [run]
      split <;> simp [Serials.receiptUsed]

theorem run_enqueue (s : Serials) (q : Queue) (added : List UInt8) :
    ((enqueue added).run now wallClock (s, q)).1.2 =
        (q.enqueue now wallClock s.freshMessage added).1 ∧
      ((enqueue added).run now wallClock (s, q)).2 =
        (q.enqueue now wallClock s.freshMessage added).2 ∧
      ∀ id, (q.enqueue now wallClock s.freshMessage added).2 = .ok id →
        ((enqueue added).run now wallClock (s, q)).1.1 = s.messageUsed := by
  simp only [run]
  split
  · next h =>
      rw [h]
      exact ⟨rfl, rfl, fun _ _ => rfl⟩
  · next h =>
      rw [h]
      exact ⟨rfl, rfl, by simp⟩

theorem run_dequeue (s : Serials) (q : Queue) (window : Duration) :
    ((dequeue window).run now wallClock (s, q)).1.2 =
        (q.dequeue now wallClock s.freshReceipt window).1 ∧
      ((dequeue window).run now wallClock (s, q)).2 =
        (q.dequeue now wallClock s.freshReceipt window).2 := by
  simp only [run]
  split
  · next h =>
      rw [h]
      exact ⟨rfl, rfl⟩
  · next h =>
      rw [h]
      exact ⟨rfl, rfl⟩
  · next h =>
      rw [h]
      exact ⟨rfl, rfl⟩

theorem run_update (s : Serials) (q : Queue) (m : Delivery) (window : Duration) :
    ((update m window).run now wallClock (s, q)).1.2 =
      (q.updateVisibility now s.freshReceipt m window).1 := by
  simp only [run]
  split
  · next h => simp [h]
  · next h => simp [h]

/-- A call that deletes nothing keeps every message. -/
theorem stores_run (hcoherent : q.IsCoherent) (hcall : ∀ m, call ≠ .delete m)
    (h : q.Stores id body) : (call.run now wallClock (s, q)).1.2.Stores id body := by
  cases call with
  | probe | create => exact h
  | enqueue added =>
      rw [(run_enqueue s q added).1]
      rcases q.enqueue_eq now wallClock s.freshMessage added with
        ⟨error, -, hmessages⟩ | ⟨-, hstores⟩
      · exact (Queue.stores_congr hmessages).mpr h
      · exact (hstores id body).mpr (.inl h)
  | dequeue window =>
      rw [(run_dequeue s q window).1]
      exact (Queue.stores_dequeue hcoherent).mpr h
  | update m window =>
      rw [run_update]
      exact Queue.stores_updateVisibility.mpr h
  | delete m => exact absurd rfl (hcall m)

/-- Whatever a call adds has a new identity. -/
theorem stores_of_run (hcoherent : q.IsCoherent)
    (h : (call.run now wallClock (s, q)).1.2.Stores id body) :
    q.Stores id body ∨ (id = s.freshMessage ∧ body = call.added ∧
      (call.run now wallClock (s, q)).1.1 = s.messageUsed) := by
  cases call with
  | probe | create => exact .inl h
  | enqueue added =>
      rw [(run_enqueue s q added).1] at h
      rcases q.enqueue_eq now wallClock s.freshMessage added with
        ⟨error, -, hmessages⟩ | ⟨hok, hstores⟩
      · exact .inl ((Queue.stores_congr hmessages).mp h)
      · rcases (hstores id body).mp h with hbefore | ⟨hid, hbody⟩
        · exact .inl hbefore
        · exact .inr ⟨hid.symm, hbody.symm, (run_enqueue s q added).2.2 _ hok⟩
  | dequeue window =>
      rw [(run_dequeue s q window).1] at h
      exact .inl ((Queue.stores_dequeue hcoherent).mp h)
  | update m window =>
      rw [run_update] at h
      exact .inl (Queue.stores_updateVisibility.mp h)
  | delete m => exact .inl (Queue.stores_of_delete h)

end QueueCall

end LeasedListener
