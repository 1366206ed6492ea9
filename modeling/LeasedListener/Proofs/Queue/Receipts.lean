import LeasedListener.Proofs.Queue.Claims
import LeasedListener.Scenario.World

/-!
# Receipts

A ledger follows a queue through any operations of any clients and keeps every
receipt that was issued, with the end of the window that came with it.  The
queue honours one receipt of a message at most: the one that was issued last,
and only before the end of its window.
-/

namespace LeasedListener

structure Issue where
  message : MessageId
  receipt : Receipt
  /-- The end of the window that was set with the receipt. -/
  ends : Nat

structure Ledger where
  queue : Queue
  now : Nat
  /-- The receipts so far, the latest first. -/
  issues : List Issue
  /-- The identities that were generated so far. -/
  ids : List MessageId

namespace Ledger

def latest? (l : Ledger) (id : MessageId) : Option Issue := l.issues.find? (·.message = id)

/-- The delivery presents the receipt that was issued last for its message,
and the window of that receipt is not over. -/
def IsCurrent (l : Ledger) (m : Delivery) : Prop :=
  ∃ issue, l.latest? m.id = some issue ∧ issue.receipt = m.receipt ∧ l.now < issue.ends

def issue (l : Ledger) (id : MessageId) (receipt : Receipt) (window : Duration) : List Issue :=
  ⟨id, receipt, Instant.windowEnd l.now window⟩ :: l.issues

def enqueue (l : Ledger) (wallClock : Timestamp) (fresh : MessageId) (body : List UInt8) : Ledger :=
  { l with
    queue := (l.queue.enqueue l.now wallClock fresh body).1
    ids := fresh :: l.ids }

def push (l : Ledger) (wallClock : Timestamp) (fresh : MessageId) (body : List UInt8)
    (dequeueCount : UInt32) : Ledger :=
  { l with
    queue := l.queue.push fresh body dequeueCount l.now wallClock
    ids := fresh :: l.ids }

def dequeue (l : Ledger) (wallClock : Timestamp) (fresh : Receipt) (window : Duration) : Ledger :=
  { l with
    queue := (l.queue.dequeue l.now wallClock fresh window).1
    issues :=
      match (l.queue.dequeue l.now wallClock fresh window).2 with
      | .ok (some m) => l.issue m.id m.receipt window
      | _ => l.issues }

def update (l : Ledger) (fresh : Receipt) (m : Delivery) (window : Duration) : Ledger :=
  { l with
    queue := (l.queue.updateVisibility l.now fresh m window).1
    issues :=
      match (l.queue.updateVisibility l.now fresh m window).2 with
      | .ok receipt => l.issue m.id receipt window
      | .error _ => l.issues }

def delete (l : Ledger) (m : Delivery) : Ledger := { l with queue := (l.queue.delete l.now m).1 }

/-- Any client does something, with whatever receipt it likes to present. -/
inductive Step : Ledger → Ledger → Prop
  | elapse {l : Ledger} {now : Nat} (later : l.now ≤ now) : Step l { l with now }
  | enqueue {l : Ledger} (wallClock : Timestamp) {fresh : MessageId} (body : List UInt8)
      (unused : fresh ∉ l.ids) : Step l (l.enqueue wallClock fresh body)
  | push {l : Ledger} (wallClock : Timestamp) {fresh : MessageId} (body : List UInt8)
      (dequeueCount : UInt32) (unused : fresh ∉ l.ids) :
      Step l (l.push wallClock fresh body dequeueCount)
  | dequeue {l : Ledger} (wallClock : Timestamp) {fresh : Receipt} (window : Duration)
      (unused : fresh ∉ l.issues.map (·.receipt)) : Step l (l.dequeue wallClock fresh window)
  | update {l : Ledger} {fresh : Receipt} (m : Delivery) (window : Duration)
      (unused : fresh ∉ l.issues.map (·.receipt)) : Step l (l.update fresh m window)
  | delete {l : Ledger} (m : Delivery) : Step l (l.delete m)
  | create {l : Ledger} : Step l { l with queue := { l.queue with present := true } }
  | drop {l : Ledger} : Step l { l with queue := l.queue.drop }
  | injectFault {l : Ledger} (operation : QueueOperation) (error : StorageError) :
      Step l { l with queue := l.queue.injectFault operation error }

/-- A ledger begins with an empty queue, which may be missing. -/
inductive Reachable : Ledger → Prop
  | start (name : String) (present : Bool) (now : Nat) :
      Reachable ⟨⟨name, present, [], []⟩, now, [], []⟩
  | step {l l' : Ledger} : Reachable l → Step l l' → Reachable l'

/-- What links the queue to the receipts that were issued. -/
structure Invariant (l : Ledger) : Prop where
  distinct : l.queue.IsDistinct
  stored : ∀ m ∈ l.queue.messages, m.id ∈ l.ids
  noted : ∀ issue ∈ l.issues, issue.message ∈ l.ids
  unique : (l.issues.map (·.receipt)).Nodup
  unclaimed : ∀ id m, l.queue.find? id = some m → l.latest? id = none → m.receipt = none
  claimed : ∀ id m issue, l.queue.find? id = some m → l.latest? id = some issue →
    m.receipt = some issue.receipt ∧ m.visibleAt = issue.ends

variable {l l' : Ledger}

theorem latest?_of_unused (hl : l.Invariant) {id : MessageId} (hunused : id ∉ l.ids) :
    l.latest? id = none := by
  refine List.find?_eq_none.mpr ?_
  intro issue hissue
  have hnoted : issue.message ∈ l.ids := hl.noted issue hissue
  have hne : issue.message ≠ id := fun hsame => hunused (hsame ▸ hnoted)
  simpa using hne

/-- An operation after which every message is as it was, or gone. -/
theorem Invariant.kept (hl : l.Invariant) {q : Queue} {now : Nat} (hdistinct : q.IsDistinct)
    (hkept : ∀ id m, q.find? id = some m → l.queue.find? id = some m) :
    ({ l with queue := q, now } : Ledger).Invariant where
  distinct := hdistinct
  stored := by
    intro m hm
    have hfound : l.queue.find? m.id = some m := hkept m.id m (Queue.find?_of_mem hdistinct hm)
    exact hl.stored m (Queue.mem_of_find? hfound)
  noted := hl.noted
  unique := hl.unique
  unclaimed := fun id m hm hnone => hl.unclaimed id m (hkept id m hm) hnone
  claimed := fun id m issue hm hissue => hl.claimed id m issue (hkept id m hm) hissue

theorem Invariant.same (hl : l.Invariant) {q : Queue} {now : Nat}
    (hmessages : q.messages = l.queue.messages) :
    ({ l with queue := q, now } : Ledger).Invariant := by
  refine hl.kept ((Queue.isDistinct_congr hmessages).mpr hl.distinct) ?_
  intro id m hm
  rw [← Queue.find?_congr hmessages]
  exact hm

theorem Invariant.append (hl : l.Invariant) {wallClock : Timestamp} {fresh : MessageId}
    {body : List UInt8} {dequeueCount : UInt32} (hunused : fresh ∉ l.ids) {q : Queue}
    (hmessages : q.messages = (l.queue.append fresh body dequeueCount l.now wallClock).messages) :
    ({ l with queue := q, ids := fresh :: l.ids } : Ledger).Invariant := by
  have hnew : ∀ m ∈ l.queue.messages, m.id ≠ fresh :=
    fun m hm hsame => hunused (hsame ▸ hl.stored m hm)
  have hfind : ∀ id m, q.find? id = some m →
      l.queue.find? id = some m ∨ (id = fresh ∧ m.receipt = none) := by
    intro id m hm
    rw [Queue.find?_congr hmessages, Queue.find?_append, Option.or_eq_some_iff] at hm
    rcases hm with hbefore | ⟨-, hadded⟩
    · exact .inl hbefore
    · by_cases hid : fresh = id
      · rw [if_pos hid, Option.some.injEq] at hadded
        exact .inr ⟨hid.symm, by rw [← hadded]⟩
      · simp [hid] at hadded
  constructor
  case distinct =>
      rw [Queue.isDistinct_congr hmessages]
      exact Queue.isDistinct_append hl.distinct hnew
  case stored =>
      intro m hm
      have hm : m ∈ (l.queue.append fresh body dequeueCount l.now wallClock).messages :=
        hmessages ▸ hm
      rcases List.mem_append.mp hm with hbefore | hadded
      · exact List.mem_cons_of_mem _ (hl.stored m hbefore)
      · rw [List.mem_singleton.mp hadded]
        exact List.mem_cons_self ..
  case noted => exact fun issue hissue => List.mem_cons_of_mem _ (hl.noted issue hissue)
  case unique => exact hl.unique
  case unclaimed =>
      intro id m hm hnone
      rcases hfind id m hm with hbefore | ⟨-, hreceipt⟩
      · exact hl.unclaimed id m hbefore hnone
      · exact hreceipt
  case claimed =>
      intro id m issue hm hissue
      rcases hfind id m hm with hbefore | ⟨hid, -⟩
      · exact hl.claimed id m issue hbefore hissue
      · have hnone : l.latest? id = none := latest?_of_unused hl (hid ▸ hunused)
        exact absurd (hnone.symm.trans hissue) (by simp)

theorem Invariant.claim (hl : l.Invariant) {q : Queue} {id : MessageId} {fresh : Receipt}
    {window : Duration} (hunused : fresh ∉ l.issues.map (·.receipt)) (hdistinct : q.IsDistinct)
    (hknown : id ∈ l.ids)
    (hself : ∃ m, q.find? id = some m ∧ m.receipt = some fresh ∧
      m.visibleAt = Instant.windowEnd l.now window)
    (hother : ∀ other, other ≠ id → q.find? other = l.queue.find? other) :
    ({ l with queue := q, issues := l.issue id fresh window } : Ledger).Invariant := by
  obtain ⟨claimed, hclaimed, hreceipt, hends⟩ := hself
  constructor
  case distinct => exact hdistinct
  case stored =>
      intro m hm
      have hfound : q.find? m.id = some m := Queue.find?_of_mem hdistinct hm
      by_cases hid : m.id = id
      · rw [hid]
        exact hknown
      · rw [hother m.id hid] at hfound
        exact hl.stored m (Queue.mem_of_find? hfound)
  case noted =>
      intro issue hissue
      rcases List.mem_cons.mp hissue with rfl | hbefore
      · exact hknown
      · exact hl.noted issue hbefore
  case unique => exact List.nodup_cons.mpr ⟨hunused, hl.unique⟩
  case unclaimed =>
      intro other m hm hnone
      by_cases hid : other = id
      · subst hid
        simp [latest?, Ledger.issue] at hnone
      · rw [hother other hid] at hm
        refine hl.unclaimed other m hm ?_
        simpa [latest?, Ledger.issue, Ne.symm hid] using hnone
  case claimed =>
      intro other m issue hm hissue
      by_cases hid : other = id
      · subst hid
        simp only [latest?, Ledger.issue, List.find?_cons, decide_true, Option.some.injEq] at hissue
        obtain rfl := Option.some.inj (hclaimed.symm.trans hm)
        subst hissue
        exact ⟨hreceipt, hends⟩
      · rw [hother other hid] at hm
        refine hl.claimed other m issue hm ?_
        simpa [latest?, Ledger.issue, Ne.symm hid] using hissue

theorem Invariant.dequeue (hl : l.Invariant) {fresh : Receipt} {window : Duration}
    (wallClock : Timestamp) (hunused : fresh ∉ l.issues.map (·.receipt)) :
    (l.dequeue wallClock fresh window).Invariant := by
  unfold Ledger.dequeue
  rcases Queue.dequeue_cases l.now wallClock fresh window hl.distinct with
      ⟨m, hm, hdelivers⟩ | ⟨hnone, hmessages, -⟩
  · obtain ⟨stored, hstored, -, -⟩ := hdelivers.visible
    have hknown : m.id ∈ l.ids :=
      Queue.id_of_find? hstored ▸ hl.stored stored (Queue.mem_of_find? hstored)
    simp only [hm, hdelivers.receipt]
    refine hl.claim hunused (hdelivers.isDistinct hl.distinct) hknown ?_ ?_
    · obtain ⟨claimed, hclaimed, hreceipt, hends⟩ := hdelivers.find?
      exact ⟨claimed, hclaimed, hreceipt.trans (congrArg some hdelivers.receipt), hends⟩
    · exact fun other hother => hdelivers.find?_of_ne hother
  · split
    · next m hm => exact absurd hm (hnone m)
    · exact hl.same hmessages

theorem Invariant.update (hl : l.Invariant) {fresh : Receipt} (m : Delivery) (window : Duration)
    (hunused : fresh ∉ l.issues.map (·.receipt)) : (l.update fresh m window).Invariant := by
  unfold Ledger.update
  by_cases haccepted : l.queue.IsOpen .update ∧ l.queue.Honours l.now m
  · obtain ⟨stored, hstored, -⟩ := haccepted.2
    rw [Queue.updateVisibility_of_honours haccepted.1 haccepted.2]
    refine hl.claim hunused (Queue.isDistinct_change (fun _ hid => hid) hl.distinct) ?_ ?_ ?_
    · exact Queue.id_of_find? hstored ▸ hl.stored stored (Queue.mem_of_find? hstored)
    · exact ⟨stored.claim l.now fresh window, by simp [Queue.find?_claim, hstored], rfl, rfl⟩
    · exact fun other hother => by rw [Queue.find?_claim, if_neg hother]
  · have hrefuses := Queue.refuses_updateVisibility fresh window haccepted
    obtain ⟨error, herror, -⟩ := hrefuses.fails
    rw [herror]
    exact hl.same hrefuses.messages

theorem Invariant.delete (hl : l.Invariant) (m : Delivery) : (l.delete m).Invariant := by
  unfold Ledger.delete
  by_cases haccepted : l.queue.IsOpen .delete ∧ l.queue.Honours l.now m
  · rw [Queue.delete_of_honours haccepted.1 haccepted.2]
    refine hl.kept (Queue.isDistinct_remove hl.distinct) ?_
    intro id stored hstored
    rw [Queue.find?_remove] at hstored
    split at hstored
    · simp at hstored
    · exact hstored
  · exact hl.same (Queue.refuses_delete haccepted).messages

theorem Invariant.step (hl : l.Invariant) (hstep : Step l l') : l'.Invariant := by
  cases hstep with
  | elapse later => exact hl.same rfl
  | @enqueue wallClock fresh body unused =>
      unfold Ledger.enqueue
      by_cases hopen : l.queue.IsOpen .enqueue
      · rw [Queue.enqueue_of_isOpen hopen]
        exact hl.append unused rfl
      · have hl : ({ l with queue := (l.queue.enqueue l.now wallClock fresh body).1 } :
            Ledger).Invariant := hl.same (Queue.enqueue_of_not_isOpen hopen).1
        exact { hl with
          stored := fun m hm => List.mem_cons_of_mem _ (hl.stored m hm)
          noted := fun issue hissue => List.mem_cons_of_mem _ (hl.noted issue hissue) }
  | push wallClock body dequeueCount unused => exact hl.append unused rfl
  | dequeue wallClock window unused => exact hl.dequeue wallClock unused
  | update m window unused => exact hl.update m window unused
  | delete m => exact hl.delete m
  | create => exact hl.same rfl
  | drop => exact hl.kept List.nodup_nil (by simp [Queue.find?, Queue.drop])
  | injectFault operation error => exact hl.same rfl

theorem Reachable.invariant (h : Reachable l) : l.Invariant := by
  induction h with
  | start name present now =>
      constructor
      case distinct => exact List.nodup_nil
      case unique => exact List.nodup_nil
      all_goals simp [Queue.find?]
  | step _ hstep ih => exact ih.step hstep

theorem Invariant.honours_iff (hl : l.Invariant) (m : Delivery) :
    l.queue.Honours l.now m ↔ l.queue.contains m.id = true ∧ l.IsCurrent m := by
  rw [Queue.contains_iff]
  constructor
  · rintro ⟨stored, hstored, hreceipt, hhidden⟩
    cases hlatest : l.latest? m.id with
    | none =>
        have hnone : stored.receipt = none := hl.unclaimed m.id stored hstored hlatest
        simp [hnone] at hreceipt
    | some issue =>
        obtain ⟨hissued, hends⟩ := hl.claimed m.id stored issue hstored hlatest
        rw [hissued, Option.some.injEq] at hreceipt
        exact ⟨⟨stored, hstored⟩, issue, hlatest, hreceipt, hends ▸ hhidden⟩
  · rintro ⟨⟨stored, hstored⟩, issue, hlatest, hreceipt, hhidden⟩
    obtain ⟨hissued, hends⟩ := hl.claimed m.id stored issue hstored hlatest
    exact ⟨stored, hstored, hissued.trans (congrArg some hreceipt), hends ▸ hhidden⟩

theorem Invariant.eq_of_receipt (hl : l.Invariant) {issue issue' : Issue} (h : issue ∈ l.issues)
    (h' : issue' ∈ l.issues) (hsame : issue.receipt = issue'.receipt) : issue = issue' :=
  List.inj_on_of_nodup_map hl.unique h h' hsame

/-- An update or a deletion is accepted exactly for the receipt that was issued
last for a message that is still there, and before the end of its window; with
every other receipt, such as one whose claim has lapsed or was superseded, it
is refused and changes nothing.  A message is never delivered while one of its
receipts is honoured. -/
theorem only_latest_receipt_honoured (h : Reachable l) (m : Delivery) (wallClock : Timestamp)
    (fresh : Receipt) (window : Duration) :
    ((l.queue.updateVisibility l.now fresh m window).2 = .ok fresh ↔
      l.queue.IsOpen .update ∧ l.queue.contains m.id = true ∧ l.IsCurrent m) ∧
    ((l.queue.delete l.now m).2 = .ok () ↔
      l.queue.IsOpen .delete ∧ l.queue.contains m.id = true ∧ l.IsCurrent m) ∧
    (¬ (l.queue.IsOpen .update ∧ l.queue.contains m.id = true ∧ l.IsCurrent m) →
      l.queue.Refuses .update m (l.queue.updateVisibility l.now fresh m window)) ∧
    (¬ (l.queue.IsOpen .delete ∧ l.queue.contains m.id = true ∧ l.IsCurrent m) →
      l.queue.Refuses .delete m (l.queue.delete l.now m)) ∧
    (∀ other : Delivery, other.id = m.id → l.IsCurrent m → l.IsCurrent other →
      other.receipt = m.receipt) ∧
    (∀ issue ∈ l.issues, issue.receipt = m.receipt →
      (issue.message ≠ m.id ∨ issue.ends ≤ l.now ∨ l.latest? issue.message ≠ some issue) →
        ¬ l.IsCurrent m) ∧
    ∀ other, (l.queue.dequeue l.now wallClock fresh window).2 = .ok (some other) →
      other.id = m.id → ¬ l.queue.Honours l.now m := by
  have hl : l.Invariant := h.invariant
  have hiff : l.queue.Honours l.now m ↔ l.queue.contains m.id = true ∧ l.IsCurrent m :=
    hl.honours_iff m
  have hupdate : ¬ (l.queue.IsOpen .update ∧ l.queue.contains m.id = true ∧ l.IsCurrent m) →
      l.queue.Refuses .update m (l.queue.updateVisibility l.now fresh m window) := by
    rw [← hiff]
    exact Queue.refuses_updateVisibility fresh window
  have hdelete : ¬ (l.queue.IsOpen .delete ∧ l.queue.contains m.id = true ∧ l.IsCurrent m) →
      l.queue.Refuses .delete m (l.queue.delete l.now m) := by
    rw [← hiff]
    exact Queue.refuses_delete
  refine ⟨?_, ?_, hupdate, hdelete, ?_, ?_, ?_⟩
  · constructor
    · intro hok
      by_contra hstale
      obtain ⟨error, herror, -⟩ := (hupdate hstale).fails
      exact absurd (hok.symm.trans herror) (by simp)
    · rintro ⟨hopen, haccepted⟩
      rw [Queue.updateVisibility_of_honours hopen (hiff.mpr haccepted)]
  · constructor
    · intro hok
      by_contra hstale
      obtain ⟨error, herror, -⟩ := (hdelete hstale).fails
      exact absurd (hok.symm.trans herror) (by simp)
    · rintro ⟨hopen, haccepted⟩
      rw [Queue.delete_of_honours hopen (hiff.mpr haccepted)]
  · rintro other hid ⟨issue, hissue, hreceipt, -⟩ ⟨issue', hissue', hreceipt', -⟩
    rw [hid, hissue, Option.some.injEq] at hissue'
    rw [← hreceipt, ← hreceipt', hissue']
  · rintro issue hissue hreceipt hover ⟨latest, hlatest, hsame, hhidden⟩
    have hmem : latest ∈ l.issues := List.mem_of_find?_eq_some hlatest
    have hmessage : latest.message = m.id := by simpa using List.find?_some hlatest
    -- no receipt is issued twice, so the issue is the latest one of the message
    obtain rfl := hl.eq_of_receipt hissue hmem (hreceipt.trans hsame.symm)
    rcases hover with hother | hlapsed | hsuperseded
    · exact hother hmessage
    · omega
    · exact hsuperseded (hmessage ▸ hlatest)
  · intro other hother hid
    exact (Queue.delivers_of_dequeue hl.distinct hother).not_honours hid.symm

def halfMinute : Duration := .ofSeconds 30

def claimedOnce : Ledger :=
  ((Ledger.mk (.create "jobs") 0 [] []).enqueue scenarioEpoch ⟨0⟩ []).dequeue scenarioEpoch ⟨0⟩
    halfMinute

def claimOnce : Delivery := ⟨⟨0⟩, ⟨0⟩, 1, [], scenarioEpoch, scenarioEpoch⟩

theorem reachable_claimedOnce (now : Nat) : Reachable { claimedOnce with now } := by
  have hstart : Reachable (Ledger.mk (.create "jobs") 0 [] []) := .start "jobs" true 0
  have henqueued := hstart.step (.enqueue scenarioEpoch [] (by simp : (⟨0⟩ : MessageId) ∉ []))
  have hclaimed := henqueued.step
    (.dequeue scenarioEpoch halfMinute (by simp [enqueue] : (⟨0⟩ : Receipt) ∉ _))
  exact hclaimed.step (.elapse (Nat.zero_le now))

/-- The claim is good for a deletion until the last nanosecond of its window. -/
theorem only_latest_receipt_honoured_claimedOnce :
    (claimedOnce.queue.delete 29999999999 claimOnce).2 = .ok () ∧
      claimedOnce.queue.Refuses .delete claimOnce
        (claimedOnce.queue.delete 30000000000 claimOnce) := by
  constructor
  · have hcurrent : IsCurrent { claimedOnce with now := 29999999999 } claimOnce :=
      ⟨⟨⟨0⟩, ⟨0⟩, 30000000000⟩, rfl, rfl, by decide⟩
    have hiff := (only_latest_receipt_honoured (reachable_claimedOnce 29999999999) claimOnce
      scenarioEpoch ⟨1⟩ halfMinute).2.1
    exact hiff.mpr ⟨⟨rfl, rfl⟩, rfl, hcurrent⟩
  · have hlapsed : ¬ IsCurrent { claimedOnce with now := 30000000000 } claimOnce := by
      rintro ⟨issue, hissue, -, hhidden⟩
      obtain rfl : (⟨⟨0⟩, ⟨0⟩, 30000000000⟩ : Issue) = issue := Option.some.inj hissue
      simp at hhidden
    have hrefuses := (only_latest_receipt_honoured (reachable_claimedOnce 30000000000) claimOnce
      scenarioEpoch ⟨1⟩ halfMinute).2.2.2.1
    exact hrefuses fun haccepted => hlapsed haccepted.2.2

end Ledger

end LeasedListener
