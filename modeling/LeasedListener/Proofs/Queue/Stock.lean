import LeasedListener.Proofs.Queue.Order

/-!
# Queues under one consumer

At one instant a single consumer dequeues messages, and deletes or releases
each before it dequeues the next.  The message in hand is the only one that the
consumer has hidden, and nothing visible stands before it.  What was hidden at
the start stays as it is.
-/

namespace LeasedListener

structure StoredMessage.Backs (stored : StoredMessage) (m : Delivery) : Prop where
  id : stored.id = m.id
  body : stored.body = m.body
  count : stored.dequeueCount = m.dequeueCount
  receipt : stored.receipt = some m.receipt

namespace Queue

variable {q q' original : Queue} {now : Nat} {wallClock : Timestamp} {fresh : Receipt}
  {window : Duration} {m : Delivery} {stored : StoredMessage} {hand? : Option Delivery}
  {before after messages kept : List StoredMessage}

def visible (q : Queue) (now : Nat) : List StoredMessage := q.messages.filter (·.isVisible now)

def hidden (q : Queue) (now : Nat) : List StoredMessage := q.messages.filter (!·.isVisible now)

/-- The place of the message in hand, and what is hidden beside it. -/
inductive Placed (now : Nat) (kept : List StoredMessage) :
    List StoredMessage → Option Delivery → Prop
  | free {messages : List StoredMessage} (others : messages.filter (!·.isVisible now) = kept) :
      Placed now kept messages none
  | held {before after : List StoredMessage} {stored : StoredMessage} {m : Delivery}
      (backs : stored.Backs m) (claimed : stored.isVisible now = false)
      (first : ∀ other ∈ before, other.isVisible now = false)
      (others : (before ++ after).filter (!·.isVisible now) = kept) :
      Placed now kept (before ++ stored :: after) (some m)

theorem Placed.others (h : Placed now kept messages none) :
    messages.filter (!·.isVisible now) = kept := by
  cases h with
  | free others => exact others

/-- A queue that has served one consumer since it was the `original`. -/
structure Stock (original : Queue) (now : Nat) (q : Queue) (hand? : Option Delivery) : Prop where
  name : q.name = original.name
  present : q.present = original.present
  faults : q.faults = original.faults
  distinct : q.IsDistinct
  placed : Placed now (original.hidden now) q.messages hand?

theorem stock_self (hdistinct : q.IsDistinct) : Stock q now q none :=
  ⟨rfl, rfl, rfl, hdistinct, .free rfl⟩

theorem Stock.isOpen (h : Stock original now q hand?) (hpresent : original.present = true)
    (hfaults : original.faults = []) (operation : QueueOperation) : q.IsOpen operation :=
  isOpen_of_faultless (h.faults.trans hfaults) (h.present.trans hpresent) operation

theorem Stock.eq_of_exhausted (h : Stock original now q none) (hnone : q.visible now = []) :
    q = { original with messages := original.hidden now } := by
  have hall : q.hidden now = q.messages := by
    rw [hidden, List.filter_eq_self]
    intro m hm
    simpa using List.filter_eq_nil_iff.mp hnone m hm
  have hkept : q.messages = original.hidden now := hall.symm.trans h.placed.others
  obtain ⟨hname, hpresent, hfaults, -, -⟩ := h
  cases q
  cases original
  simp_all

theorem filter_visible_append (hfirst : ∀ other ∈ before, other.isVisible now = false)
    (rest : List StoredMessage) :
    (before ++ rest).filter (·.isVisible now) = rest.filter (·.isVisible now) := by
  have hbefore : before.filter (·.isVisible now) = [] := by
    rw [List.filter_eq_nil_iff]
    intro other hother
    simp [hfirst other hother]
  rw [List.filter_append, hbefore, List.nil_append]

theorem Stock.exists_lies (h : Stock original now q (some m)) :
    ∃ before stored after, q.Lies before stored after ∧ stored.Backs m ∧
      stored.isVisible now = false ∧ (∀ other ∈ before, other.isVisible now = false) ∧
      (before ++ after).filter (!·.isVisible now) = original.hidden now := by
  obtain ⟨-, -, -, hdistinct, hplaced⟩ := h
  generalize hmessages : q.messages = messages at hplaced
  cases hplaced with
  | held backs claimed first others =>
      exact ⟨_, _, _, lies_of_messages hdistinct hmessages, backs, claimed, first, others⟩

theorem Stock.honours (h : Stock original now q (some m)) : q.Honours now m := by
  obtain ⟨before, stored, after, hlies, hbacks, hclaimed, -, -⟩ := h.exists_lies
  refine ⟨stored, ?_, hbacks.receipt, ?_⟩
  · rw [← hbacks.id]
    exact hlies.find?
  · simpa [StoredMessage.isVisible] using hclaimed

theorem Stock.dequeue (h : Stock original now q none) (hpresent : original.present = true)
    (hfaults : original.faults = []) (hwindow : 0 < window.nanos) :
    (q.visible now = [] ∧ q.dequeue now wallClock fresh window = (q, .ok none)) ∨
    ∃ stored q', q.visible now = stored :: q'.visible now ∧
      q.dequeue now wallClock fresh window =
        (q', .ok (some (stored.delivery fresh (wallClock.plus window)))) ∧
      Stock original now q' (some (stored.delivery fresh (wallClock.plus window))) := by
  have hopen := h.isOpen hpresent hfaults .dequeue
  have hserves := q.serves_dequeue now wallClock fresh window
  generalize q.dequeue now wallClock fresh window = outcome at hserves
  cases hserves with
  | refuses barred messages => exact absurd hopen barred
  | exhausted isOpen none =>
      refine .inl ⟨?_, rfl⟩
      rw [visible, List.filter_eq_nil_iff]
      exact List.find?_eq_none.mp none
  | @delivers stored isOpen first =>
      obtain ⟨before, after, hlies, hvisible, hfirst⟩ := lies_of_first h.distinct first
      have hdistinct : (q.change stored.id
          fun _ => stored.countDequeue.claim now fresh window).IsDistinct :=
        isDistinct_change (fun _ _ => rfl) h.distinct
      have hclaimed : (stored.countDequeue.claim now fresh window).isVisible now = false := by
        rw [StoredMessage.isVisible_claim, decide_eq_false_iff_not]
        omega
      have hmessages := hlies.change fun _ => stored.countDequeue.claim now fresh window
      have hplaced : Placed now (original.hidden now)
          (before ++ stored.countDequeue.claim now fresh window :: after)
          (some (stored.delivery fresh (wallClock.plus window))) := by
        refine .held ⟨rfl, rfl, rfl, rfl⟩ hclaimed hfirst ?_
        have hothers := h.placed.others
        rw [hlies.messages] at hothers
        simpa [List.filter_cons, hvisible] using hothers
      refine .inr ⟨stored, _, ?_, rfl, h.name, h.present, h.faults, hdistinct, ?_⟩
      · simp [visible, hlies.messages, hmessages, filter_visible_append hfirst,
          hvisible, hclaimed]
      · rw [hmessages]
        exact hplaced

theorem Stock.release (h : Stock original now q (some m)) (hpresent : original.present = true)
    (hfaults : original.faults = []) :
    ∃ stored q', q.updateVisibility now fresh m .zero = (q', .ok fresh) ∧
      Stock original now q' none ∧ q'.visible now = stored :: q.visible now ∧
      stored.id = m.id ∧ stored.body = m.body ∧ stored.dequeueCount = m.dequeueCount := by
  obtain ⟨before, stored, after, hlies, hbacks, hclaimed, hfirst, hothers⟩ := h.exists_lies
  have hdistinct : (q.change stored.id (·.claim now fresh .zero)).IsDistinct :=
    isDistinct_change (fun _ hid => hid) h.distinct
  have hvisible : (stored.claim now fresh .zero).isVisible now = true := by
    rw [StoredMessage.isVisible_claim]
    rfl
  have hmessages := hlies.change (·.claim now fresh .zero)
  have hplaced : Placed now (original.hidden now)
      (before ++ stored.claim now fresh .zero :: after) none := by
    refine .free ?_
    simpa [List.filter_cons, hvisible] using hothers
  refine ⟨stored.claim now fresh .zero, q.change stored.id (·.claim now fresh .zero), ?_,
    ⟨h.name, h.present, h.faults, hdistinct, hmessages ▸ hplaced⟩, ?_, hbacks.id, hbacks.body,
    hbacks.count⟩
  · rw [hbacks.id]
    exact updateVisibility_of_honours (h.isOpen hpresent hfaults .update) h.honours
  · simp [visible, hlies.messages, hmessages, filter_visible_append hfirst, hvisible,
      hclaimed]

theorem Stock.delete (h : Stock original now q (some m)) (hpresent : original.present = true)
    (hfaults : original.faults = []) :
    ∃ q', q.delete now m = (q', .ok ()) ∧ Stock original now q' none ∧
      q'.visible now = q.visible now := by
  obtain ⟨before, stored, after, hlies, hbacks, hclaimed, hfirst, hothers⟩ := h.exists_lies
  have hmessages : (q.remove m.id).messages = before ++ after := by
    rw [← hbacks.id]
    exact hlies.remove
  refine ⟨q.remove m.id, delete_of_honours (h.isOpen hpresent hfaults .delete) h.honours,
    ⟨h.name, h.present, h.faults, isDistinct_remove h.distinct, ?_⟩, ?_⟩
  · rw [hmessages]
    exact .free hothers
  · simp [visible, hlies.messages, hmessages, filter_visible_append hfirst, hclaimed]

/-- A queue to which the bodies have been added, and that was created if it had
to be. -/
structure Shelf (original : Queue) (now : Nat) (bodies : List (List UInt8)) (opened : Bool)
    (q : Queue) : Prop where
  name : q.name = original.name
  faults : q.faults = original.faults
  present : q.present = (original.present || !bodies.isEmpty || opened)
  copies : ∃ copies, q.messages = original.messages ++ copies ∧ copies.map (·.body) = bodies ∧
    ∀ copy ∈ copies, copy.dequeueCount = 0 ∧ copy.visibleAt = now ∧ copy.receipt = none

theorem shelf_self : Shelf q now [] false q where
  name := rfl
  faults := rfl
  present := by simp
  copies := ⟨[], by simp⟩

variable {bodies : List (List UInt8)}

theorem Shelf.create (h : Shelf original now bodies false q) :
    Shelf original now bodies true { q with present := true } where
  name := h.name
  faults := h.faults
  present := by simp
  copies := h.copies

theorem Shelf.enqueue (h : Shelf original now bodies true q) (hfaults : original.faults = [])
    (wallClock : Timestamp) (fresh : MessageId) (body : List UInt8) :
    q.enqueue now wallClock fresh body = (q.append fresh body 0 now wallClock, .ok fresh) :=
  enqueue_of_isOpen (isOpen_of_faultless (h.faults.trans hfaults)
    (h.present.trans (Bool.or_true _)) .enqueue)

theorem Shelf.append (h : Shelf original now bodies true q) (wallClock : Timestamp)
    (fresh : MessageId) (body : List UInt8) :
    Shelf original now (bodies ++ [body]) false (q.append fresh body 0 now wallClock) where
  name := h.name
  faults := h.faults
  present := by
    have hpresent : (q.append fresh body 0 now wallClock).present = true :=
      h.present.trans (Bool.or_true _)
    rw [hpresent]
    simp
  copies := by
    obtain ⟨copies, hmessages, hbodies, hfresh⟩ := h.copies
    refine ⟨copies ++ [⟨fresh, body, 0, wallClock, now, none⟩], ?_, ?_, ?_⟩
    · rw [← List.append_assoc, ← hmessages]
      rfl
    · rw [List.map_append, hbodies]
      rfl
    · intro copy hcopy
      rcases List.mem_append.mp hcopy with hbefore | hlast
      · exact hfresh copy hbefore
      · obtain rfl := List.mem_singleton.mp hlast
        exact ⟨rfl, rfl, rfl⟩

end Queue

end LeasedListener
